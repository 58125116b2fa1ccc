/-
Concurrent runs of experiments (`ExperimentRunner.run`, `_publish_with_reconciliation`,
`_cleanup_owned_directory` of `evosport/experiments/runner.py`, and `publish` of `registry.py`).

The runs share a registry and an artifact root.  Between two awaits a run does all it does at once;
what a run awaits happens at a moment of its own (`lookUp`, `commit`, `readBack`), and the run goes on
at a later one.  A publication may be committed or not before `publish` raises.

While runs are under way, a record and the publication that is to become one speak of a package that
a run has verified at the artifact directory (`World.Inv`).  The one step that can break this is the
removal of a directory after a failed publication, while another run has registered the package or is
about to.
-/
import Evosport.Experiments.Reuse

namespace Evosport.Experiments

open Lib

/-! ## The cleanup of a directory -/

/-- A path below an owned directory, and whether it leads to a directory. -/
structure OwnedEntry where
  path : List String
  isDirectory : Bool

mutual

/-- `_owned_artifact_tree`: a directory comes before its entries, and these in the order of their
names. -/
def ownedArtifactTree : FileTree → Except String (List OwnedEntry)
  | .file _ _ => .ok [⟨[], false⟩]
  | .dir _ entries => do
    let below ← ownedChildren entries
    let sorted := below.insertionSort fun c d => c.1 ≤ d.1
    pure (⟨[], true⟩ :: sorted.flatMap fun c =>
      c.2.map fun e => { e with path := c.1 :: e.path })
  | .link _ => .error "owned artifact tree contains a symlink"
  | .special _ => .error "owned artifact tree contains a special path"

/-- The children of an owned directory, each with what it owns itself; the first that cannot be
listed ends the walk. -/
def ownedChildren : List (String × FileTree) → Except String (List (String × List OwnedEntry))
  | [] => .ok []
  | (name, t) :: entries => do
    let first ← ownedArtifactTree t
    let rest ← ownedChildren entries
    pure ((name, first) :: rest)

end

/-- The system calls of the cleanup, each on a path below the directory that is removed. -/
inductive CleanupCall where
  | chmod (path : List String)
  | unlink (path : List String)
  | rmdir (path : List String)

/-- What a call of the clean-up does to the file system; none where it raises. -/
def CleanupCall.perform : CleanupCall → FileTree → Option FileTree
  | .chmod path, t => t.chmod 0o700 path
  | .unlink path, t => t.remove path
  | .rmdir path, t => t.remove path

/-- The calls of `_cleanup_owned_directory`, deep entries first. -/
def cleanupCalls (entries : List OwnedEntry) : List CleanupCall :=
  let deepFirst := entries.insertionSort fun e e' => e'.path.length ≤ e.path.length
  let directories := (deepFirst.filter (·.isDirectory)).map (·.path)
  let files := (deepFirst.filter (! ·.isDirectory)).map (·.path)
  directories.map .chmod ++ files.map .unlink ++ directories.map .rmdir

/-- `_cleanup_owned_directory` of the tree that its caller has published, when `succeeding` of its
calls succeed: what it leaves, and the note on its own error.  The last call takes away the directory
itself. -/
def cleanupOwnedDirectory (t : FileTree) (succeeding : ℕ) (osError : String) :
    Option FileTree × Option String :=
  match ownedArtifactTree t with
  | .error refusal => (some t, some ("owned artifact cleanup was refused: " ++ refusal))
  | .ok entries =>
    let calls := cleanupCalls entries
    if calls.length ≤ succeeding then (none, none)
    else (some ((calls.take succeeding).foldl (fun t call => (call.perform t).getD t) t),
      some ("owned artifact cleanup also failed: " ++ osError))

/-- The cleanup takes the tree: it has neither symbolic links nor special paths. -/
def Plain (t : FileTree) : Prop := ∃ entries, ownedArtifactTree t = .ok entries

lemma plain_file (mode : ℕ) (bytes : ByteArray) : Plain (.file mode bytes) := ⟨_, rfl⟩

lemma plain_dir {mode : ℕ} {entries : List (String × FileTree)} :
    Plain (.dir mode entries) ↔ ∀ e ∈ entries, Plain e.2 := by
  have hchildren : (∃ below, ownedChildren entries = .ok below) ↔ ∀ e ∈ entries, Plain e.2 := by
    induction entries with
    | nil => simp [ownedChildren]
    | cons e entries ih =>
      rw [List.forall_mem_cons, ← ih]
      simp only [ownedChildren, except_bind_eq_ok, Plain]
      constructor
      · rintro ⟨below, first, hfirst, rest, hrest, -⟩
        exact ⟨⟨first, hfirst⟩, rest, hrest⟩
      · rintro ⟨⟨first, hfirst⟩, rest, hrest⟩
        exact ⟨_, first, hfirst, rest, hrest, rfl⟩
  rw [← hchildren]
  simp only [Plain, ownedArtifactTree, except_bind_eq_ok]
  constructor
  · rintro ⟨_, below, hbelow, -⟩
    exact ⟨below, hbelow⟩
  · rintro ⟨below, hbelow⟩
    exact ⟨_, below, hbelow, rfl⟩

lemma plain_write_entry {mode : ℕ} {entries : List (String × FileTree)} {name : String}
    {c : FileTree} (hentries : ∀ e ∈ entries, Plain e.2) (hc : Plain c) :
    Plain (.dir mode (Dict.write name c entries)) := by
  rw [plain_dir]
  intro e he
  rcases Dict.mem_write he with rfl | he
  · exact hc
  · exact hentries e he

lemma plain_of_lookup {entries : List (String × FileTree)} {name : String} {c : FileTree}
    (hentries : ∀ e ∈ entries, Plain e.2) (h : Dict.lookup name entries = some c) : Plain c :=
  hentries _ (Dict.mem_of_lookup h)

lemma Plain.write {canHold : String → Bool} {umask : ℕ} {content : ByteArray} {path : List String}
    {t t' : FileTree} (ht : Plain t) (h : t.write canHold umask content path = some t') :
    Plain t' := by
  fun_induction FileTree.write canHold umask content path t generalizing t' with
  | case1 name mode entries _ _ =>
    cases h
    exact plain_write_entry (plain_dir.1 ht) (plain_file _ _)
  | case2 name mode entries _ mode' bytes _ =>
    cases h
    exact plain_write_entry (plain_dir.1 ht) (plain_file _ _)
  | case5 name path mode entries _ _ ih =>
    obtain ⟨c, hc, rfl⟩ := Option.map_eq_some_iff.1 h
    refine plain_write_entry (plain_dir.1 ht) (ih ?_ hc)
    cases hlookup : Dict.lookup name entries with
    | none => exact plain_dir.2 (by simp)
    | some c' => exact plain_of_lookup (plain_dir.1 ht) hlookup
  | _ => cases h

lemma Plain.setMode {t : FileTree} (ht : Plain t) (mode : ℕ) : Plain (t.setMode mode) := by
  cases t with
  | file _ bytes => exact plain_file mode bytes
  | dir _ entries => exact plain_dir.2 (plain_dir.1 ht)
  | link _ => exact ht
  | special _ => obtain ⟨_, ⟨⟩⟩ := ht

lemma Plain.chmod {mode : ℕ} {path : List String} {t t' : FileTree} (ht : Plain t)
    (h : t.chmod mode path = some t') : Plain t' := by
  fun_induction FileTree.chmod mode path t generalizing t' with
  | case1 t =>
    cases h
    exact ht.setMode mode
  | case2 name path mode' entries ih =>
    obtain ⟨c, hc, h⟩ := Option.bind_eq_some_iff.1 h
    obtain ⟨c', hc', rfl⟩ := Option.map_eq_some_iff.1 h
    exact plain_write_entry (plain_dir.1 ht) (ih c (plain_of_lookup (plain_dir.1 ht) hc) hc')
  | case3 => cases h

lemma Plain.writeBytes {canHold : String → Bool} {umask : ℕ} {t t' : FileTree}
    {item : String × ByteArray} (ht : Plain t)
    (h : Experiments.writeBytes canHold umask t item = .ok t') : Plain t' :=
  ht.write (expect_eq_ok.1 h)

lemma Plain.changeMode {t t' : FileTree} {mode : ℕ} {path : List String} (ht : Plain t)
    (h : Experiments.changeMode mode t path = .ok t') : Plain t' :=
  ht.chmod (expect_eq_ok.1 h)

lemma Plain.makeEvidenceReadOnly {t t' : FileTree} (ht : Plain t)
    (h : Experiments.makeEvidenceReadOnly t = .ok t') : Plain t' := by
  simp only [Experiments.makeEvidenceReadOnly, except_bind_eq_ok] at h
  obtain ⟨files, -, t₁, h₁, t₂, h₂, t₃, h₃, h⟩ := h
  have hfiles : Plain t₁ :=
    foldlM_invariant (fun _ _ _ _ ht h => Plain.changeMode ht h) ht h₁
  exact ((hfiles.changeMode h₂).changeMode h₃).changeMode h

/-- The cleanup takes every tree that was published. -/
lemma plain_of_publishArtifacts {F : Type} [PyFloat F] {canHold : String → Bool} {umask : ℕ}
    {root root' : Dict String FileTree}
    {artifactDir runId publicationKey fingerprint random : String}
    {evidence : Dict String ByteArray} {rendered : ByteArray}
    (h : publishArtifacts F canHold umask root artifactDir runId publicationKey fingerprint random
      evidence rendered = .ok root') :
    ∃ t, root' = root.set artifactDir t ∧ Plain t := by
  simp only [publishArtifacts, publishStagingDirectory, except_bind_eq_ok] at h
  obtain ⟨t₁, h₁, t₂, h₂, -, -, t₃, h₃, -, -, t, ht, -, -, -, -, -, -, hset⟩ := h
  have hitems : Plain t₁ :=
    foldlM_invariant (fun _ _ _ _ ht h => Plain.writeBytes ht h) (plain_dir.2 (by simp)) h₁
  exact ⟨t, (Except.ok.inj hset).symm,
    ((hitems.writeBytes h₂).writeBytes h₃).makeEvidenceReadOnly ht⟩

/-! ## The parties -/

/-- `publish` of the registries, where it takes effect. -/
def publishRecord (registry : Dict String RunRecord) (fingerprint : String) (record : RunRecord) :
    Except String RunRecord × Dict String RunRecord :=
  match registry.get? fingerprint with
  | none => (.ok record, registry.set fingerprint record)
  | some existing =>
    if existing = record then (.ok existing, registry)
    else (.error "fingerprint already published with different evidence", registry)

/-- What a run hands to `_publish_with_reconciliation`, and what it returns afterwards. -/
structure Publication (F : Type) where
  intended : RunRecord
  /-- The run has published the artifact directory itself. -/
  owned : Bool
  outcome : ExperimentOutcome F

/-- Where a run stands between two awaits: before and after the look-up, in the engine, in the
publication or its reconciliation, or at its end. -/
inductive Phase (F : Type) where
  /-- It awaits the record of its fingerprint. -/
  | started
  | looked (cached : Option RunRecord)
  /-- It awaits the gateway. -/
  | running
  /-- It awaits `publish`, which has answered or not. -/
  | publishing (p : Publication F) (answer : Option (Except String RunRecord))
  /-- `publish` has raised, and the run awaits the record once more. -/
  | reconciling (p : Publication F) (publishError : String) (observed : Option (Option RunRecord))
  | returned (outcome : ExperimentOutcome F)
  | raised (error : String) (notes : List String)

/-- The record that the registry may still take in. -/
def Phase.pending {F : Type} : Phase F → Option RunRecord
  | .publishing p none => some p.intended
  | _ => none

/-- The run is about to remove the directory it has published. -/
def Phase.removes {F : Type} : Phase F → Bool
  | .reconciling p _ (some none) => p.owned
  | _ => false

variable {F M Φ : Type} [PyFloat F] {svc : Services F M Φ}

/-- A call of `ExperimentRunner.run`. -/
structure Attempt (svc : Services F M Φ) where
  inputs : RunInputs svc
  phase : Phase F

/-- The fingerprint of the inputs that the run was started with. -/
def Attempt.fingerprint (a : Attempt svc) : String := a.inputs.fingerprint

/-- The registry and the artifact root, which all runs share, and the runs, each with its inputs and
its phase. -/
structure World (svc : Services F M Φ) where
  store : Store
  /-- The run whose files stand at an artifact directory, by which `_cleanup_owned_directory` knows
  the directory it owns. -/
  builder : Dict String ℕ
  runs : List (Attempt svc)

/-- What may happen next: a run arrives, or one of the runs that are there takes its next step
between two awaits. -/
inductive Event (svc : Services F M Φ) where
  | arrive (inputs : RunInputs svc)
  /-- The registry reads the record that the run awaits. -/
  | lookUp (k : ℕ)
  /-- The run goes on with the record. -/
  | proceed (k : ℕ) (football : Φ)
  /-- The gateway's result, which lists each key once, is there. -/
  | gatewayReturns (k : ℕ) (football : Φ) (result : Json F) (distinct : result.distinctKeys = true)
      (random : String)
  /-- What the run awaits before its publication raises, or the run is cancelled. -/
  | interrupted (k : ℕ) (error : String)
  /-- The publication takes effect. -/
  | commit (k : ℕ)
  | publishReturns (k : ℕ)
  | publishRaises (k : ℕ) (error : String)
  /-- The registry reads the record that the reconciliation awaits. -/
  | readBack (k : ℕ)
  | readBackFails (k : ℕ) (error : String)
  /-- The run goes on with what it has read back; `succeeding` calls of a cleanup succeed. -/
  | reconcile (k : ℕ) (succeeding : ℕ) (osError : String)

namespace World

variable (w : World svc)

/-- The `k`-th run gets to `phase`. -/
def move (k : ℕ) (phase : Phase F) : World svc :=
  { w with runs := w.runs.modify k fun a => { a with phase := phase } }

/-- The run `k` goes on with the record of its fingerprint: it checks the cached run, adopts a
directory that has no record, or goes on to the engine. -/
def proceedRun (k : ℕ) (a : Attempt svc) (cached : Option RunRecord) (football : Φ) : World svc :=
  let dir := w.store.root.get? a.fingerprint
  match cached with
  | some cached =>
    match a.inputs.cachedRun dir football cached with
    | .ok outcome => w.move k (.returned outcome)
    | .error error => w.move k (.raised error [])
  | none =>
    if w.store.root.contains a.fingerprint then
      match a.inputs.adoptRun dir football with
      | .ok (record, outcome) => w.move k (.publishing ⟨record, false, outcome⟩ none)
      | .error error => w.move k (.raised error [])
    else w.move k .running

/-- The run `k` publishes a package of the gateway's result. -/
def publishResult (k : ℕ) (a : Attempt svc) (football : Φ) (result : Json F) (random : String) :
    World svc :=
  match a.inputs.freshRun football w.store.root result random with
  | .ok (root, record, outcome) =>
    { w with store := { w.store with root := root }, builder := w.builder.set a.fingerprint k }
      |>.move k (.publishing ⟨record, true, outcome⟩ none)
  | .error error => w.move k (.raised error [])

/-- The run `k` removes the directory it has published, if it is still its own. -/
def cleanUp (k : ℕ) (a : Attempt svc) (publishError : String) (succeeding : ℕ) (osError : String) :
    World svc :=
  let preserved := "unregistered evidence was preserved at " ++ a.fingerprint
  match w.store.root.get? a.fingerprint with
  | none => w.move k (.raised publishError [("owned artifact cleanup also failed: " ++ osError),
      preserved])
  | some t =>
    if w.builder.get? a.fingerprint = some k then
      let cleanup := cleanupOwnedDirectory t succeeding osError
      let root := match cleanup.1 with
        | none => w.store.root.erase a.fingerprint
        | some left => w.store.root.set a.fingerprint left
      { w with store := { w.store with root := root } }
        |>.move k (.raised publishError (cleanup.2.elim [] fun note => [note, preserved]))
    else w.move k (.raised publishError
      ["owned artifact cleanup was refused: artifact tree identity changed before cleanup",
        preserved])

/-- The run `k` goes on with the record it has read back. -/
def reconcileRun (k : ℕ) (a : Attempt svc) (p : Publication F) (publishError : String)
    (observed : Option RunRecord) (succeeding : ℕ) (osError : String) : World svc :=
  match observed with
  | some record =>
    if record = p.intended then w.move k (.returned p.outcome)
    else w.move k (.raised ("publication conflict after an ambiguous publish; " ++
      "evidence was preserved for fingerprint " ++ a.fingerprint) [])
  | none =>
    if p.owned then w.cleanUp k a publishError succeeding osError
    else w.move k (.raised publishError [])

/-- What an event does to the run it is about. -/
def onRun (k : ℕ) (f : Attempt svc → Phase F → World svc) : World svc :=
  match w.runs[k]? with
  | some a => f a a.phase
  | none => w

/-- One event.  A run that is not in the phase which the event belongs to is left alone. -/
def step : Event svc → World svc
  | .arrive inputs => { w with runs := w.runs ++ [⟨inputs, .started⟩] }
  | .lookUp k => w.onRun k fun a phase =>
    match phase with
    | .started => w.move k (.looked (w.store.registry.get? a.fingerprint))
    | _ => w
  | .proceed k football => w.onRun k fun a phase =>
    match phase with
    | .looked cached => w.proceedRun k a cached football
    | _ => w
  | .gatewayReturns k football result _ random => w.onRun k fun a phase =>
    match phase with
    | .running => w.publishResult k a football result random
    | _ => w
  | .interrupted k error => w.onRun k fun _ phase =>
    match phase with
    | .returned _ | .raised _ _ => w
    | _ => w.move k (.raised error [])
  | .commit k => w.onRun k fun a phase =>
    match phase with
    | .publishing p none =>
      let published := publishRecord w.store.registry a.fingerprint p.intended
      { w with store := { w.store with registry := published.2 } }
        |>.move k (.publishing p (some published.1))
    | _ => w
  | .publishReturns k => w.onRun k fun _ phase =>
    match phase with
    | .publishing p (some (.ok _)) => w.move k (.returned p.outcome)
    | _ => w
  | .publishRaises k error => w.onRun k fun _ phase =>
    match phase with
    | .publishing p _ => w.move k (.reconciling p error none)
    | _ => w
  | .readBack k => w.onRun k fun a phase =>
    match phase with
    | .reconciling p publishError none =>
      w.move k (.reconciling p publishError (some (w.store.registry.get? a.fingerprint)))
    | _ => w
  | .readBackFails k error => w.onRun k fun _ phase =>
    match phase with
    | .reconciling _ publishError none => w.move k (.raised publishError
      ["publication reconciliation lookup failed; evidence was preserved: " ++ error])
    | _ => w
  | .reconcile k succeeding osError => w.onRun k fun a phase =>
    match phase with
    | .reconciling p publishError (some observed) =>
      w.reconcileRun k a p publishError observed succeeding osError
    | _ => w

end World

/-! ## Records and packages -/

variable (svc) in
/-- The tree is a package that a run with the fingerprint verifies, and the record is its. -/
structure PackageOf (fingerprint : String) (t : FileTree) (record : RunRecord) : Prop where
  verified : ∃ (i : RunInputs svc) (football : Φ) (result : Json F), i.fingerprint = fingerprint ∧
    Verified i (some t) football result record.homerunRunId
  manifestSha256 : fileDigest t "artifact-manifest.json" = some record.artifactManifestSha256
  resultSha256 : fileDigest t "result.json" = some record.resultSha256

variable (svc) in
/-- The artifact directory of the fingerprint is there, with the package of the record. -/
def Published (root : Dict String FileTree) (fingerprint : String) (record : RunRecord) : Prop :=
  ∃ t, root.get? fingerprint = some t ∧ PackageOf svc fingerprint t record

/-- A record made of a verified directory is the record of a package. -/
lemma published_of_verified {i : RunInputs svc} {root : Dict String FileTree} {football : Φ}
    {result : Json F} {homerunRunId : String} {record : RunRecord}
    (h : Verified i (root.get? i.fingerprint) football result homerunRunId)
    (hrecord : i.runRecord (root.get? i.fingerprint) result homerunRunId = .ok record) :
    Published svc root i.fingerprint record := by
  obtain ⟨evidence, -, hpackage⟩ := h.package
  simp only [verifyPackageAt, except_bind_eq_ok, expect_eq_ok] at hpackage
  obtain ⟨t, ht, -⟩ := hpackage
  rw [ht] at h hrecord
  simp only [RunInputs.runRecord, except_bind_eq_ok, sha256File, expect_eq_ok] at hrecord
  obtain ⟨effective, -, manifestSha, hmanifest, resultSha, hresult, heq⟩ := hrecord
  obtain rfl := Except.ok.inj heq
  exact ⟨t, ht, ⟨i, football, result, rfl, h⟩, hmanifest, hresult⟩

/-- A publication of a package makes an artifact directory that was not there, and touches no
other. -/
lemma root_of_publishArtifacts {canHold : String → Bool} {umask : ℕ}
    {root root' : Dict String FileTree}
    {artifactDir runId publicationKey fingerprint random : String}
    {evidence : Dict String ByteArray} {rendered : ByteArray}
    (h : publishArtifacts F canHold umask root artifactDir runId publicationKey fingerprint random
      evidence rendered = .ok root') :
    root.get? artifactDir = none ∧ ∀ k, k ≠ artifactDir → root'.get? k = root.get? k := by
  simp only [publishArtifacts, publishStagingDirectory, except_bind_eq_ok, check_eq_ok] at h
  obtain ⟨-, -, -, -, -, -, -, -, -, -, t, -, -, -, -, -, -, habsent, hset⟩ := h
  obtain rfl := Except.ok.inj hset
  refine ⟨?_, fun k hk => root.get?_set_of_ne t (Ne.symm hk)⟩
  simpa [Dict.contains] using habsent

lemma root_of_freshRun {i : RunInputs svc} {root root' : Dict String FileTree} {football : Φ}
    {result : Json F} {random : String} {record : RunRecord} {outcome : ExperimentOutcome F}
    (h : i.freshRun football root result random = .ok (root', record, outcome)) :
    root.get? i.fingerprint = none ∧
      ∀ fingerprint, fingerprint ≠ i.fingerprint →
        root'.get? fingerprint = root.get? fingerprint := by
  simp only [RunInputs.freshRun, except_bind_eq_ok] at h
  obtain ⟨_, -, _, -, _, -, _, -, root₁, hpublished, _, -, hpure⟩ := h
  obtain ⟨rfl, -⟩ := Prod.mk.inj (Except.ok.inj hpure)
  exact root_of_publishArtifacts hpublished

namespace World

/-- Every record of the registry is the record of the package at its artifact directory. -/
def Safe (w : World svc) : Prop :=
  ∀ fingerprint record, w.store.registry.get? fingerprint = some record →
    Published svc w.store.root fingerprint record

/-- Besides, so is every record that the registry may still take in. -/
structure Inv (w : World svc) : Prop where
  safe : w.Safe
  pending : ∀ a ∈ w.runs, ∀ record, a.phase.pending = some record →
    Published svc w.store.root a.fingerprint record

/-- The registry has no record of the fingerprint, and no run is about to publish one. -/
def Unclaimed (w : World svc) (fingerprint : String) : Prop :=
  w.store.registry.get? fingerprint = none ∧
    ∀ a ∈ w.runs, a.fingerprint = fingerprint → a.phase.pending = none

/-- A run removes the directory it has published only while nothing refers to it. -/
def RemovesUnclaimed (w : World svc) : Event svc → Prop
  | .reconcile k _ _ => ∀ a, w.runs[k]? = some a → a.phase.removes = true →
      w.Unclaimed a.fingerprint
  | _ => True

/-! ## What a step keeps -/

variable {w : World svc} {k : ℕ} {a : Attempt svc} {phase : Phase F}

omit [PyFloat F] in
lemma mem_runs_move {b : Attempt svc} (h : b ∈ (w.move k phase).runs) :
    b ∈ w.runs ∨ ∃ a, w.runs[k]? = some a ∧ b = { a with phase := phase } := by
  obtain ⟨n, hn⟩ := List.mem_iff_getElem?.1 h
  rw [move, List.getElem?_modify] at hn
  by_cases hk : k = n
  · subst hk
    obtain ⟨a, ha, rfl⟩ := Option.map_eq_some_iff.1 hn
    exact .inr ⟨a, ha, by simp⟩
  · simp only [if_neg hk, id_map'] at hn
    exact .inl (List.mem_of_getElem? hn)

/-- A run gets to a phase whose publication, if it has one to come, is that of a package. -/
lemma Inv.move (h : w.Inv) (ha : w.runs[k]? = some a)
    (hphase : ∀ record, phase.pending = some record →
      Published svc w.store.root a.fingerprint record) : (w.move k phase).Inv := by
  refine ⟨h.safe, fun b hb record hrecord => ?_⟩
  rcases mem_runs_move hb with hb | ⟨a', ha', rfl⟩
  · exact h.pending b hb record hrecord
  · obtain rfl := Option.some.inj (ha.symm.trans ha')
    exact hphase record hrecord

lemma Inv.move_idle (h : w.Inv) (ha : w.runs[k]? = some a) (hphase : phase.pending = none) :
    (w.move k phase).Inv :=
  h.move ha fun record hrecord => by rw [hphase] at hrecord; cases hrecord

/-- What nothing refers to may change. -/
lemma Inv.withRoot {fingerprint : String} {root : Dict String FileTree} {builder : Dict String ℕ}
    (h : w.Inv) (hfree : w.Unclaimed fingerprint)
    (hother : ∀ fp, fp ≠ fingerprint → root.get? fp = w.store.root.get? fp) :
    World.Inv { w with store := { w.store with root := root }, builder := builder } := by
  have hkeep : ∀ fp record, fp ≠ fingerprint → Published svc w.store.root fp record →
      Published svc root fp record := by
    rintro fp record hne ⟨t, ht, hpackage⟩
    exact ⟨t, by rw [hother fp hne, ht], hpackage⟩
  refine ⟨fun fp record hrecord => ?_, fun a ha record hrecord => ?_⟩
  · by_cases hfp : fp = fingerprint
    · rw [hfp, show w.store.registry.get? fingerprint = none from hfree.1] at hrecord
      cases hrecord
    · exact hkeep fp record hfp (h.safe fp record hrecord)
  · by_cases hfp : a.fingerprint = fingerprint
    · rw [hfree.2 a ha hfp] at hrecord
      cases hrecord
    · exact hkeep _ record hfp (h.pending a ha record hrecord)

/-- Nothing refers to an artifact directory that is not there. -/
lemma Inv.unclaimed_of_absent (h : w.Inv) {fingerprint : String}
    (habsent : w.store.root.get? fingerprint = none) : w.Unclaimed fingerprint := by
  have hnone : ∀ record, ¬ Published svc w.store.root fingerprint record := by
    rintro record ⟨t, ht, -⟩
    rw [habsent] at ht
    cases ht
  refine ⟨Option.eq_none_iff_forall_ne_some.2 fun record hrecord =>
    hnone record (h.safe fingerprint record hrecord), fun a ha hfp => ?_⟩
  refine Option.eq_none_iff_forall_ne_some.2 fun record hrecord => hnone record ?_
  exact hfp ▸ h.pending a ha record hrecord

lemma Inv.proceedRun (h : w.Inv) (ha : w.runs[k]? = some a) (cached : Option RunRecord)
    (football : Φ) : (w.proceedRun k a cached football).Inv := by
  cases cached with
  | some cached =>
    simp only [World.proceedRun]
    split <;> exact h.move_idle ha rfl
  | none =>
    simp only [World.proceedRun]
    split
    · split
      · next record outcome hadopt =>
        obtain ⟨result, homerunRunId, hverified, hrecord, -⟩ := adoptRun_eq_ok hadopt
        refine h.move ha fun record' hpending => ?_
        obtain rfl := Option.some.inj hpending
        exact published_of_verified hverified hrecord
      · exact h.move_idle ha rfl
    · exact h.move_idle ha rfl

lemma Inv.publishResult (h : w.Inv) (ha : w.runs[k]? = some a) (football : Φ) {result : Json F}
    (hdistinct : result.distinctKeys = true) (random : String) :
    (w.publishResult k a football result random).Inv := by
  rw [World.publishResult]
  split
  · next root record outcome hfresh =>
    obtain ⟨habsent, hother⟩ := root_of_freshRun hfresh
    have hroot : World.Inv { w with
        store := { w.store with root := root }, builder := w.builder.set a.fingerprint k } :=
      h.withRoot (h.unclaimed_of_absent habsent) hother
    obtain ⟨result', homerunRunId, hverified, hrecord, -⟩ := freshRun_eq_ok hdistinct hfresh
    refine hroot.move ha fun record' hpending => ?_
    obtain rfl := Option.some.inj hpending
    exact published_of_verified hverified hrecord
  · exact h.move_idle ha rfl

lemma Inv.cleanUp (h : w.Inv) (ha : w.runs[k]? = some a) (hfree : w.Unclaimed a.fingerprint)
    (publishError : String) (succeeding : ℕ) (osError : String) :
    (w.cleanUp k a publishError succeeding osError).Inv := by
  rw [World.cleanUp]
  dsimp only
  split
  · exact h.move_idle ha rfl
  · split
    · refine (h.withRoot hfree fun fp hfp => ?_).move_idle ha rfl
      split
      · exact w.store.root.get?_erase_of_ne (Ne.symm hfp)
      · exact w.store.root.get?_set_of_ne _ (Ne.symm hfp)
    · exact h.move_idle ha rfl

lemma Inv.reconcileRun (h : w.Inv) (ha : w.runs[k]? = some a) {p : Publication F}
    {observed : Option RunRecord}
    (hfree : p.owned = true → observed = none → w.Unclaimed a.fingerprint)
    (publishError : String) (succeeding : ℕ) (osError : String) :
    (w.reconcileRun k a p publishError observed succeeding osError).Inv := by
  cases observed with
  | some record =>
    simp only [World.reconcileRun]
    split <;> exact h.move_idle ha rfl
  | none =>
    simp only [World.reconcileRun]
    split
    · next howned => exact h.cleanUp ha (hfree howned rfl) publishError succeeding osError
    · exact h.move_idle ha rfl

/-- The registry takes in a record that was about to come. -/
lemma Inv.publish (h : w.Inv) (ha : w.runs[k]? = some a) {record : RunRecord}
    (hpending : a.phase.pending = some record) :
    World.Inv { w with store := { w.store with
      registry := (publishRecord w.store.registry a.fingerprint record).2 } } := by
  refine ⟨fun fp record' hrecord' => ?_, h.pending⟩
  rw [publishRecord] at hrecord'
  split at hrecord'
  · simp only [Dict.get?_set] at hrecord'
    split at hrecord'
    · next hfp =>
      obtain rfl := Option.some.inj hrecord'
      exact hfp ▸ h.pending a (List.mem_of_getElem? ha) record hpending
    · exact h.safe fp record' hrecord'
  · split at hrecord' <;> exact h.safe fp record' hrecord'

/-- A step on a run, in terms of where the run stands. -/
lemma Inv.onRun (h : w.Inv) {f : Attempt svc → Phase F → World svc}
    (hf : ∀ a, w.runs[k]? = some a → (f a a.phase).Inv) : (w.onRun k f).Inv := by
  rw [World.onRun]
  split
  · next a ha => exact hf a ha
  · exact h

theorem Inv.step (h : w.Inv) {e : Event svc} (he : w.RemovesUnclaimed e) : (w.step e).Inv := by
  cases e with
  | arrive inputs =>
    refine ⟨h.safe, fun a ha record hrecord => ?_⟩
    rcases List.mem_append.1 ha with ha | ha
    · exact h.pending a ha record hrecord
    · obtain rfl := List.mem_singleton.1 ha
      cases hrecord
  | lookUp k =>
    rw [World.step]
    refine h.onRun fun a ha => ?_
    split
    · exact h.move_idle ha rfl
    · exact h
  | proceed k football =>
    rw [World.step]
    refine h.onRun fun a ha => ?_
    split
    · exact h.proceedRun ha _ football
    · exact h
  | gatewayReturns k football result hdistinct random =>
    rw [World.step]
    refine h.onRun fun a ha => ?_
    split
    · exact h.publishResult ha football hdistinct random
    · exact h
  | interrupted k error =>
    rw [World.step]
    refine h.onRun fun a ha => ?_
    split
    · exact h
    · exact h
    · exact h.move_idle ha rfl
  | commit k =>
    rw [World.step]
    refine h.onRun fun a ha => ?_
    split
    · next p hphase =>
      have hpending : a.phase.pending = some p.intended := by rw [hphase]; rfl
      exact (h.publish ha hpending).move_idle ha rfl
    · exact h
  | publishReturns k =>
    rw [World.step]
    refine h.onRun fun a ha => ?_
    split
    · exact h.move_idle ha rfl
    · exact h
  | publishRaises k error =>
    rw [World.step]
    refine h.onRun fun a ha => ?_
    split
    · exact h.move_idle ha rfl
    · exact h
  | readBack k =>
    rw [World.step]
    refine h.onRun fun a ha => ?_
    split
    · exact h.move_idle ha rfl
    · exact h
  | readBackFails k error =>
    rw [World.step]
    refine h.onRun fun a ha => ?_
    split
    · exact h.move_idle ha rfl
    · exact h
  | reconcile k succeeding osError =>
    rw [World.step]
    refine h.onRun fun a ha => ?_
    split
    · next p publishError observed hphase =>
      refine h.reconcileRun ha (fun howned hobserved => he a ha ?_) publishError succeeding osError
      rw [hphase, hobserved]
      exact howned
    · exact h

/-- Registry and artifact root of earlier runs, and no run under way. -/
def idle (store : Store) (builder : Dict String ℕ) : World svc := ⟨store, builder, []⟩

/-- In every run whose removals meet the condition, from a registry that is right, every record is
that of the package at its artifact directory. -/
theorem safe_of_removesUnclaimed {store : Store} {builder : Dict String ℕ}
    (hstore : (idle store builder : World svc).Safe) {es : List (Event svc)}
    (hes : EveryStep step RemovesUnclaimed (idle store builder : World svc) es) :
    (es.foldl step (idle store builder)).Safe :=
  (hes.invariant (I := Inv) ⟨hstore, by simp [idle]⟩ fun _ _ h he => h.step he).safe

/-! ## A removal behind another run -/

/-- A fresh run gets to its registration: the gateway's result is valid, and the name of its package
and the names in it are free and fit for the file system. -/
lemma freshRun_ok {i : RunInputs svc} {football : Φ} {root : Dict String FileTree}
    {result : Json F} {source homerunRunId digest : String} (random : String)
    (hsource : String.fromUTF8? i.strategyBytes = some source)
    (hobject : result.names?.isSome = true)
    (hvalidated : svc.validateGatewayResult result.canon i.manifest football = .ok homerunRunId)
    (hdigest : effectiveDatasetSha256 result.canon = .ok digest)
    (hsafe : '\\' ∉ (fileName i.spec.strategy.sourcePath).toList)
    (hhold : ∀ k ∈ rootArtifactFiles ++ ["strategy-package", fileName i.spec.strategy.sourcePath],
      svc.canHold k = true)
    (hlock : root.get? ("." ++ i.fingerprint ++ ".lock") = none)
    (habsent : root.get? i.fingerprint = none) :
    ∃ t record outcome, Plain t ∧
      i.freshRun football root result random = .ok (root.set i.fingerprint t, record, outcome) := by
  let captured := i.captured result.canon homerunRunId homerunRunId i.fingerprint
  let name := fileName i.spec.strategy.sourcePath
  have hpublished : ∃ root', publishArtifacts F svc.canHold svc.umask root i.fingerprint
      homerunRunId i.fingerprint i.fingerprint random (evidenceMap name captured)
      captured.report = .ok root' :=
    publishArtifacts_ok i.names_file hsafe (hhold name (by simp [name]))
      (fun k hk => hhold k (List.mem_append_left _ hk)) (hhold "strategy-package" (by simp)) hlock
      habsent
  obtain ⟨root', hpublished⟩ := hpublished
  obtain ⟨t, rfl, hplain⟩ := plain_of_publishArtifacts hpublished
  have hevidence : evidenceBytes name captured = .ok (evidenceMap name captured) := by
    rw [evidenceBytes, if_neg (by rw [i.names_file]; decide)]
  obtain ⟨t', ht', -, hmanifest, hresult, -⟩ := (package_exact hevidence).2 _ _ hpublished
  rw [Dict.get?_set_self] at ht'
  obtain rfl := Option.some.inj ht'
  let record : RunRecord := ⟨i.fingerprint, homerunRunId, svc.manifestId i.manifest, digest,
    sha256 (artifactManifestBytes F homerunRunId i.fingerprint (evidenceMap name captured)),
    sha256 captured.result⟩
  refine ⟨t, record, outcomeOf svc i.fingerprint i.manifest homerunRunId result.canon, hplain, ?_⟩
  simp only [RunInputs.freshRun, except_bind_eq_ok, expect_eq_ok]
  refine ⟨source, hsource, result.canon, strictJsonObject_eq_ok.2 ⟨hobject, rfl⟩, homerunRunId,
    hvalidated, _, hevidence, _, hpublished, record, ?_, rfl⟩
  simp only [RunInputs.runRecord, except_bind_eq_ok, sha256File, expect_eq_ok]
  rw [Dict.get?_set_self]
  exact ⟨digest, hdigest, _, hmanifest, _, hresult, rfl⟩

/-- The first of two runs publishes the package, and its registration raises uncommitted; the second
run registers the package after the first has read back that there is no record. -/
def removalBehind (i : RunInputs svc) (football : Φ) (result : Json F)
    (distinct : result.distinctKeys = true) (random : String) (succeeding : ℕ) :
    List (Event svc) :=
  [.arrive i, .lookUp 0, .proceed 0 football, .gatewayReturns 0 football result distinct random,
    .arrive i, .lookUp 1, .proceed 1 football, .publishRaises 0 "connection lost", .readBack 0,
    .commit 1, .publishReturns 1, .reconcile 0 succeeding ""]

variable {i : RunInputs svc} {football : Φ} {result : Json F} {random : String} {t : FileTree}
  {record : RunRecord} {outcome : ExperimentOutcome F}

/-- There is a record then, and no directory. -/
lemma removalBehind_unsafe (distinct : result.distinctKeys = true)
    (hfresh : i.freshRun football Dict.empty result random =
      .ok (Dict.empty.set i.fingerprint t, record, outcome))
    (ht : Plain t) : ∃ succeeding, ¬ Safe ((removalBehind i football result distinct random
      succeeding).foldl step (idle ⟨Dict.empty, Dict.empty⟩ Dict.empty)) := by
  obtain ⟨result', homerunRunId, hverified, hrecord, houtcome⟩ := freshRun_eq_ok distinct hfresh
  have hadopt : i.adoptRun (some t) football = .ok (record, outcome) := by
    rw [Dict.get?_set_self] at hverified hrecord
    simp only [RunInputs.adoptRun, except_bind_eq_ok]
    exact ⟨_, verifyPublished_eq_ok.2 hverified, record, hrecord, by rw [houtcome]; rfl⟩
  obtain ⟨entries, hentries⟩ := ht
  refine ⟨(cleanupCalls entries).length, fun hsafe => ?_⟩
  have hclean : cleanupOwnedDirectory t (cleanupCalls entries).length "" = (none, none) := by
    simp [cleanupOwnedDirectory, hentries]
  obtain ⟨t', ht', -⟩ := hsafe i.fingerprint record (by
    simp [removalBehind, idle, step, onRun, move, proceedRun, publishResult, reconcileRun, cleanUp,
      publishRecord, Attempt.fingerprint, Dict.contains, hfresh, hadopt, hclean])
  simp [removalBehind, idle, step, onRun, move, proceedRun, publishResult, reconcileRun, cleanUp,
      publishRecord, Attempt.fingerprint, Dict.contains, hfresh, hadopt, hclean] at ht'

/-- A run whose registration raises uncommitted removes its directory; nobody else is under way. -/
def removalAlone (i : RunInputs svc) (football : Φ) (result : Json F)
    (distinct : result.distinctKeys = true) (random : String) : List (Event svc) :=
  [.arrive i, .lookUp 0, .proceed 0 football, .gatewayReturns 0 football result distinct random,
    .publishRaises 0 "connection lost", .readBack 0, .reconcile 0 3 "busy"]

lemma removalAlone_removesUnclaimed (distinct : result.distinctKeys = true)
    (hfresh : i.freshRun football Dict.empty result random =
      .ok (Dict.empty.set i.fingerprint t, record, outcome)) :
    EveryStep step RemovesUnclaimed (idle ⟨Dict.empty, Dict.empty⟩ Dict.empty)
      (removalAlone i football result distinct random) := by
  simp [removalAlone, EveryStep, RemovesUnclaimed, Unclaimed, idle, step, onRun, move, proceedRun,
    publishResult, Attempt.fingerprint, Phase.pending, Dict.contains, hfresh]

/-- An empty registry is right. -/
lemma safe_empty (builder : Dict String ℕ) :
    (idle ⟨Dict.empty, Dict.empty⟩ builder : World svc).Safe := by
  intro fingerprint record hrecord
  simp [idle] at hrecord

/-- What the gateway returns in the experiment. -/
def labResult : Json Amount :=
  .obj [("effective_dataset", .obj [("content_hash", .str ("sha256:" ++ sha256 "lab".toUTF8))]),
    ("run_id", .str "run-1")]

lemma canon_labResult : labResult.canon = labResult := by
  have hsorted : ("effective_dataset" : String) ≤ "run_id" := by decide
  rw [labResult, Json.canon_obj]
  simp [sortByKey, KeyLe, Json.canon, Json.canonMembers, hsorted]

lemma effectiveDatasetSha256_labResult :
    effectiveDatasetSha256 labResult = .ok (sha256 "lab".toUTF8) := by
  have hdigest : String.ofList (("sha256:" ++ sha256 "lab".toUTF8).toList.drop "sha256:".length) =
      sha256 "lab".toUTF8 := by
    have hlength : "sha256:".toList.length = "sha256:".length := rfl
    rw [String.toList_append, List.drop_left' hlength, String.ofList_toList]
  simp only [effectiveDatasetSha256, except_bind_eq_ok, expect_eq_ok, check_eq_ok]
  refine ⟨_, rfl, (), rfl, "sha256:" ++ sha256 "lab".toUTF8, rfl, (), by simp, (), ?_, ?_⟩
  · rw [hdigest]
    exact Data.isSha256_sha256 _
  · rw [hdigest]
    rfl

lemma freshRun_inLab : ∃ t record outcome, Plain t ∧
    (inLab []).freshRun () Dict.empty labResult "x" =
      .ok (Dict.empty.set (inLab []).fingerprint t, record, outcome) := by
  have hsource : String.fromUTF8? (inLab []).strategyBytes = some "class Strategy: pass\n" := by
    rw [show (inLab []).strategyBytes = "class Strategy: pass\n".toUTF8 from rfl, fromUTF8?_toUTF8]
  have hvalidated : labServices.validateGatewayResult labResult.canon (inLab []).manifest () =
      .ok "run-1" := by
    rw [canon_labResult]
    rfl
  have hdigest : effectiveDatasetSha256 labResult.canon = .ok (sha256 "lab".toUTF8) := by
    rw [canon_labResult, effectiveDatasetSha256_labResult]
  exact freshRun_ok "x" hsource rfl hvalidated hdigest (by decide) (fun _ _ => rfl) rfl rfl

theorem removalAlone_safe :
    Safe ((removalAlone (inLab []) () labResult rfl "x").foldl step
      (idle ⟨Dict.empty, Dict.empty⟩ Dict.empty)) := by
  obtain ⟨t, record, outcome, -, hfresh⟩ := freshRun_inLab
  exact safe_of_removesUnclaimed (safe_empty _) (removalAlone_removesUnclaimed rfl hfresh)

/-- A run registers the package while the run that has published it is about to remove it. -/
theorem removed_behind_registration : ∃ succeeding,
    ¬ Safe ((removalBehind (inLab []) () labResult rfl "x" succeeding).foldl step
      (idle ⟨Dict.empty, Dict.empty⟩ Dict.empty)) := by
  obtain ⟨t, record, outcome, ht, hfresh⟩ := freshRun_inLab
  exact removalBehind_unsafe rfl hfresh ht

end World

end Evosport.Experiments
